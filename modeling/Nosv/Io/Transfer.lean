import Mathlib.Algebra.BigOperators.Group.List.Basic
import Mathlib.Algebra.GroupWithZero.Nat
import Mathlib.Tactic.SplitIfs
import Nosv.Io.Buffer

/-!
# Operations on owned buffers, once and until the whole buffer is transferred

One operation moves its buffer into a work item, from which the driver builds an SQE and which
turns the terminal CQE into a result and the buffer. The exact and all methods repeat that with the
rest of the buffer. File and socket methods differ in whether the SQE has a file offset and in the
texts of their errors, which are parameters here.

What the driver answers is an argument: one answer for each operation, in order. A call that waits
for an answer that is not there yet has issued its SQE and has no outcome.

* `untilDone_transferred`: the loop transfers the buffer bit by bit, and returns it;
* `untilDone_filled` and `untilDone_sent`: what that means for reads and for writes.
-/

namespace Nosv.Io

/-! ## Work items -/

/-- An SQE, up to its opcode, descriptor and flags. -/
structure Sqe where
  /-- Allocation-relative start of the bytes. -/
  start : ℕ
  /-- Their number, a `u32`. -/
  len : ℕ
  /-- File offset; a socket operation has none. -/
  offset : Option UInt64
  deriving DecidableEq, Repr

/-- The result of a call on an owned buffer, and the buffer. -/
abbrev BufResult (T B : Type) := Except Error T × B

/-- `ReadWork`, `WriteWork`, `RecvWork` and `SendWork`. -/
structure Work (B : Type) where
  buf : B
  /-- Positioned file offset, or `u64::MAX` for append. -/
  fileOffset : Option UInt64
  /-- Allocation-relative offset. -/
  bufferOffset : ℕ
  /-- Maximum completion length. -/
  remaining : ℕ

/-- How a work item turns out. -/
structure Finished (B : Type) where
  result : Except Error ℕ
  buf : B
  /-- The calls of `set_init` with the buffer they are made on, for specification only. -/
  setInits : List (B × ℕ)

/-- The CQE of a read or a receive, and the bytes that the kernel has stored. It has at least as
many as it says. -/
structure Received where
  result : ℤ
  bytes : List UInt8
  le_length : result.toNat ≤ bytes.length

/-- `u32::MAX` -/
def u32Max : ℕ := 2 ^ 32 - 1

namespace Work

variable {B : Type}

/-- Builds the SQE; the length is cast to `u32`. -/
def entry (w : Work B) : Sqe := ⟨w.bufferOffset, w.remaining % 2 ^ 32, w.fileOffset⟩

/-- `complete` of a read or a receive. The kernel has stored its bytes at the pointer of the SQE. -/
def receive [IoBufMut B] (oversized : String) (w : Work B) (cqe : Received) : Finished B :=
  let buf := store w.buf w.bufferOffset (cqe.bytes.take w.entry.len)
  match Nosv.Io.result cqe.result with
  | .ok read =>
    -- the guard keeps `set_init` within the allocation
    if read ≤ w.remaining then
      let initialized := max (bytesInit buf) (w.bufferOffset + read)
      ⟨.ok read, setInit buf initialized, [(buf, initialized)]⟩
    else ⟨.error (.new .invalidData oversized), buf, []⟩
  | .error error => ⟨.error error, buf, []⟩

/-- `complete` of a write or a send. -/
def send (oversized : String) (w : Work B) (cqe : ℤ) : Finished B :=
  match Nosv.Io.result cqe with
  | .ok written =>
    if written ≤ w.remaining then ⟨.ok written, w.buf, []⟩
    else ⟨.error (.new .invalidData oversized), w.buf, []⟩
  | .error error => ⟨.error error, w.buf, []⟩

end Work

/-! ## Calls -/

/-- What becomes of an operation in the driver. -/
inductive Answer (K : Type) where
  /-- A terminal CQE. -/
  | completed (cqe : K)
  /-- It fails before its SQE is submitted. -/
  | failed (error : Error)

/-- A call as far as the answers go. -/
structure Progress (T B : Type) where
  /-- The SQEs issued, in order. -/
  sqes : List Sqe
  setInits : List (B × ℕ)
  /-- `none` while an operation is pending. -/
  outcome : Option (BufResult T B)

section Calls

variable {B K : Type}

/-- The length check of the `_offset` helpers, which give the buffer back when it fails; `size` is
`bytes_total` or `bytes_init`. -/
def workAt (size : B → ℕ) (fileOffset : Option UInt64) (buf : B) (bufferOffset : ℕ) :
    Except Error (Work B) :=
  let remaining := size buf - bufferOffset
  if u32Max < remaining then .error (.new .invalidInput "buffer is too large for io_uring")
  else .ok ⟨buf, fileOffset, bufferOffset, remaining⟩

/-- One operation. -/
def once (work : Except Error (Work B)) (finish : Work B → K → Finished B) (buf : B) :
    Option (Answer K) → Progress ℕ B
  | answer =>
    match work, answer with
    | .error error, _ => ⟨[], [], some (.error error, buf)⟩
    | .ok item, none => ⟨[item.entry], [], none⟩
    | .ok item, some (.failed error) => ⟨[], [], some (.error error, item.buf)⟩
    | .ok item, some (.completed cqe) =>
      let f := finish item cqe
      ⟨[item.entry], f.setInits, some (f.result, f.buf)⟩

/-- `while done < total`: operations on what is left, until a result of zero or an error. -/
def untilDone (total : ℕ) (work : B → ℕ → Except Error (Work B))
    (finish : Work B → K → Finished B) (stalled : Error) :
    List (Answer K) → B → ℕ → Progress Unit B
  | answers, buf, done =>
    if done < total then
      match work buf done, answers with
      | .error error, _ => ⟨[], [], some (.error error, buf)⟩
      | .ok item, [] => ⟨[item.entry], [], none⟩
      | .ok item, .failed error :: _ => ⟨[], [], some (.error error, item.buf)⟩
      | .ok item, .completed cqe :: answers =>
        let f := finish item cqe
        match f.result with
        -- `UnexpectedEof` for a read, `WriteZero` for a write
        | .ok 0 => ⟨[item.entry], f.setInits, some (.error stalled, f.buf)⟩
        | .ok count =>
          let p := untilDone total work finish stalled answers f.buf (done + count)
          ⟨item.entry :: p.sqes, f.setInits ++ p.setInits, p.outcome⟩
        | .error error => ⟨[item.entry], f.setInits, some (.error error, f.buf)⟩
    else ⟨[], [], some (.ok (), buf)⟩

end Calls

section Equations

variable {B K : Type} {total done count : ℕ} {work : B → ℕ → Except Error (Work B)}
  {finish : Work B → K → Finished B} {stalled error : Error} {answers : List (Answer K)} {cqe : K}
  {buf : B} {item : Work B}

/-- Everything is transferred. -/
theorem untilDone_of_le (h : total ≤ done) :
    untilDone total work finish stalled answers buf done = ⟨[], [], some (.ok (), buf)⟩ := by
  unfold untilDone
  rw [if_neg (Nat.not_lt_of_le h)]

/-- The call gives the buffer back without an operation. -/
theorem untilDone_rejected (h : done < total) (hwork : work buf done = .error error) :
    untilDone total work finish stalled answers buf done = ⟨[], [], some (.error error, buf)⟩ := by
  unfold untilDone
  rw [if_pos h, hwork]

/-- The operation is pending. -/
theorem untilDone_nil (h : done < total) (hwork : work buf done = .ok item) :
    untilDone (K := K) total work finish stalled [] buf done = ⟨[item.entry], [], none⟩ := by
  unfold untilDone
  rw [if_pos h, hwork]

/-- The operation fails before it is submitted. -/
theorem untilDone_failed (h : done < total) (hwork : work buf done = .ok item) :
    untilDone total work finish stalled (.failed error :: answers) buf done =
      ⟨[], [], some (.error error, item.buf)⟩ := by
  unfold untilDone
  rw [if_pos h, hwork]

/-- The operation makes no progress. -/
theorem untilDone_stalled (h : done < total) (hwork : work buf done = .ok item)
    (hresult : (finish item cqe).result = .ok 0) :
    untilDone total work finish stalled (.completed cqe :: answers) buf done =
      ⟨[item.entry], (finish item cqe).setInits, some (.error stalled, (finish item cqe).buf)⟩ := by
  unfold untilDone
  simp only [if_pos h, hwork, hresult]

/-- The operation fails. -/
theorem untilDone_error (h : done < total) (hwork : work buf done = .ok item)
    (hresult : (finish item cqe).result = .error error) :
    untilDone total work finish stalled (.completed cqe :: answers) buf done =
      ⟨[item.entry], (finish item cqe).setInits, some (.error error, (finish item cqe).buf)⟩ := by
  unfold untilDone
  simp only [if_pos h, hwork, hresult]

/-- The operation transfers something, and the loop goes on. -/
theorem untilDone_goes (h : done < total) (hwork : work buf done = .ok item)
    (hresult : (finish item cqe).result = .ok count) (hcount : count ≠ 0) :
    untilDone total work finish stalled (.completed cqe :: answers) buf done =
      let p := untilDone total work finish stalled answers (finish item cqe).buf (done + count)
      ⟨item.entry :: p.sqes, (finish item cqe).setInits ++ p.setInits, p.outcome⟩ := by
  obtain ⟨n, rfl⟩ := Nat.exists_eq_succ_of_ne_zero hcount
  rw [untilDone.eq_def]
  simp only [if_pos h, hwork, hresult]

/-- An SQE of a single operation is that of its work item. -/
theorem mem_sqes_once {answer : Option (Answer K)} {s : Sqe} {start : Except Error (Work B)}
    (h : s ∈ (once start finish buf answer).sqes) : ∃ item, start = .ok item ∧ s = item.entry := by
  cases start with
  | error error => cases h
  | ok item =>
    refine ⟨item, rfl, ?_⟩
    cases answer with
    | none => exact List.mem_singleton.mp h
    | some answer =>
      cases answer with
      | failed => cases h
      | completed => exact List.mem_singleton.mp h

/-- The work item that the `_offset` helpers build. -/
theorem workAt_eq_ok {size : B → ℕ} {fileOffset : Option UInt64} {bufferOffset : ℕ}
    (h : workAt size fileOffset buf bufferOffset = .ok item) :
    item = ⟨buf, fileOffset, bufferOffset, size buf - bufferOffset⟩ := by
  unfold workAt at h
  dsimp only at h
  split_ifs at h
  cases h
  rfl

end Equations

/-! ## What the loop transfers -/

section Accepted

variable {K : Type} (r : K → ℤ)

/-- The bytes that an answer transfers when `remaining` are left: none where the loop ends. -/
def Answer.count (remaining : ℕ) : Answer K → ℕ
  | .completed cqe => if (r cqe).toNat ≤ remaining then (r cqe).toNat else 0
  | .failed _ => 0

/-- The error that the loop ends with at an answer. -/
def Answer.error (stalled oversized : Error) : Answer K → Error
  | .completed cqe =>
    if r cqe < 0 then .os (-r cqe) else if r cqe = 0 then stalled else oversized
  | .failed error => error

/-- The counts transferred before the loop ends: neither zero, nor negative, nor oversized. -/
def accepted (remaining : ℕ) : List (Answer K) → List ℕ
  | [] => []
  | answer :: answers =>
    if answer.count r remaining = 0 then []
    else answer.count r remaining :: accepted (remaining - answer.count r remaining) answers

variable {r} {remaining : ℕ} {answers : List (Answer K)}

/-- An answer transfers no more than what is left. -/
theorem Answer.count_le (answer : Answer K) : answer.count r remaining ≤ remaining := by
  unfold Answer.count
  split
  · split_ifs with h
    · exact h
    · exact Nat.zero_le _
  · exact Nat.zero_le _

/-- All answers together transfer no more than that. -/
theorem accepted_sum_le : (accepted r remaining answers).sum ≤ remaining := by
  induction answers generalizing remaining with
  | nil => exact Nat.zero_le _
  | cons answer answers ih =>
    rw [accepted]
    split_ifs
    · exact Nat.zero_le _
    · have hle : answer.count r remaining ≤ remaining := answer.count_le
      have := @ih (remaining - answer.count r remaining)
      rw [List.sum_cons]
      omega

/-- Every count is positive, so there are no more of them than bytes. -/
theorem accepted_length_le : (accepted r remaining answers).length ≤
    (accepted r remaining answers).sum := by
  induction answers generalizing remaining with
  | nil => exact Nat.zero_le _
  | cons answer answers ih =>
    rw [accepted]
    split_ifs with hzero
    · exact Nat.zero_le _
    · have := @ih (remaining - answer.count r remaining)
      rw [List.sum_cons, List.length_cons]
      omega

/-- Nothing is left to transfer. -/
theorem accepted_zero : accepted r 0 answers = [] := by
  have hsum : (accepted r 0 answers).sum ≤ 0 := accepted_sum_le
  have hlen : (accepted r 0 answers).length ≤ (accepted r 0 answers).sum := accepted_length_le
  exact List.length_eq_zero_iff.mp (by omega)

end Accepted

/-! ## The rule of the loop -/

section Rule

variable {B K : Type}

/-- The SQE of the operation that starts after `done` bytes of `total`. -/
def sqeAt (total : ℕ) (offsetAt : ℕ → Option UInt64) (done : ℕ) : Sqe :=
  ⟨done, (total - done) % 2 ^ 32, offsetAt done⟩

/-- What the loop needs of one iteration. `I` is an invariant of the buffer, the bytes done and the
answers to come; `P` is what holds at each `set_init`. -/
structure Iteration (total : ℕ) (offsetAt : ℕ → Option UInt64)
    (work : B → ℕ → Except Error (Work B)) (finish : Work B → K → Finished B) (r : K → ℤ)
    (oversized : Error) (I : B → ℕ → List (Answer K) → Prop) (P : B → ℕ → Prop) : Prop where
  work : ∀ buf done answers, I buf done answers → done < total →
    work buf done = .ok ⟨buf, offsetAt done, done, total - done⟩
  result : ∀ item cqe, (finish item cqe).result =
    if r cqe < 0 then .error (.os (-r cqe))
    else if (r cqe).toNat ≤ item.remaining then .ok (r cqe).toNat else .error oversized
  /-- A count moves the invariant on to the next answer. -/
  goes : ∀ buf done cqe answers, I buf done (.completed cqe :: answers) → done < total →
    (r cqe).toNat ≤ total - done → (r cqe).toNat ≠ 0 →
    I (finish ⟨buf, offsetAt done, done, total - done⟩ cqe).buf (done + (r cqe).toNat) answers
  /-- An answer that ends the loop leaves what was done alone. -/
  ends : ∀ buf done cqe answers, I buf done (.completed cqe :: answers) → done < total →
    (Answer.completed cqe).count r (total - done) = 0 →
    I (finish ⟨buf, offsetAt done, done, total - done⟩ cqe).buf done (.completed cqe :: answers)
  setInits : ∀ buf done cqe answers, I buf done (.completed cqe :: answers) → done < total →
    ∀ c ∈ (finish ⟨buf, offsetAt done, done, total - done⟩ cqe).setInits, P c.1 c.2

/-- What the loop has done when `done` bytes were transferred before it saw the given answers. -/
structure Transferred (total : ℕ) (offsetAt : ℕ → Option UInt64) (r : K → ℤ)
    (stalled oversized : Error) (I : B → ℕ → List (Answer K) → Prop) (P : B → ℕ → Prop)
    (done : ℕ) (answers : List (Answer K)) (p : Progress Unit B) : Prop where
  /-- Each operation starts where the ones before it ended, and covers the rest. -/
  sqes : ∀ i s, p.sqes[i]? = some s → s.start < total ∧
    s = sqeAt total offsetAt (done + ((accepted r (total - done) answers).take i).sum)
  length_ge : (accepted r (total - done) answers).length ≤ p.sqes.length
  length_le : p.sqes.length ≤ (accepted r (total - done) answers).length + 1 ∧
    p.sqes.length ≤ total - done
  outcome : p.outcome.map Prod.fst =
    if done + (accepted r (total - done) answers).sum = total then some (.ok ())
    else (answers[(accepted r (total - done) answers).length]?).map fun answer =>
      .error (answer.error r stalled oversized)
  final : ∀ x, p.outcome = some x → ∃ rest,
    I x.2 (done + (accepted r (total - done) answers).sum) rest ∧
      accepted r (total - (done + (accepted r (total - done) answers).sum)) rest = []
  setInits : ∀ c ∈ p.setInits, P c.1 c.2

variable {total : ℕ} {offsetAt : ℕ → Option UInt64} {work : B → ℕ → Except Error (Work B)}
  {finish : Work B → K → Finished B} {r : K → ℤ} {stalled oversized : Error}
  {I : B → ℕ → List (Answer K) → Prop} {P : B → ℕ → Prop} {buf : B} {done : ℕ}
  {answers : List (Answer K)}

/-- The loop ends at its first look, or at the first answer. -/
theorem Transferred.stop {p : Progress Unit B}
    (hnone : accepted r (total - done) answers = [])
    (hsqes : p.sqes = [] ∨ done < total ∧ p.sqes = [sqeAt total offsetAt done])
    (houtcome : p.outcome.map Prod.fst = if done = total then some (.ok ())
      else answers.head?.map fun answer => .error (answer.error r stalled oversized))
    (hfinal : ∀ x, p.outcome = some x → I x.2 done answers)
    (hsetInits : ∀ c ∈ p.setInits, P c.1 c.2) :
    Transferred total offsetAt r stalled oversized I P done answers p where
  -- Nothing is accepted, so there is one SQE at most, the one that stopped.
  sqes i s hs := by
    rw [hnone, List.take_nil, List.sum_nil, Nat.add_zero]
    rcases hsqes with hsqes | ⟨hlt, hsqes⟩
    · simp [hsqes] at hs
    · rw [hsqes] at hs
      have hs := List.mem_singleton.mp (List.mem_of_getElem? hs)
      exact ⟨hs ▸ hlt, hs⟩
  length_ge := by
    rw [hnone]
    exact Nat.zero_le _
  length_le := by
    rw [hnone]
    rcases hsqes with hsqes | ⟨hlt, hsqes⟩
    · simp [hsqes]
    · simp only [hsqes, List.length_singleton, List.length_nil]
      omega
  outcome := by
    rw [hnone, List.sum_nil, Nat.add_zero, List.length_nil, houtcome, List.head?_eq_getElem?]
  final x hx := by
    rw [hnone, List.sum_nil, Nat.add_zero]
    exact ⟨answers, hfinal x hx, hnone⟩
  setInits := hsetInits

/-- One more operation in front of the others. -/
theorem Transferred.cons {p : Progress Unit B} {answer : Answer K} {count : ℕ}
    {setInits : List (B × ℕ)} (hcount : answer.count r (total - done) = count) (hpos : count ≠ 0)
    (hsetInits : ∀ c ∈ setInits, P c.1 c.2)
    (h : Transferred total offsetAt r stalled oversized I P (done + count) answers p) :
    Transferred total offsetAt r stalled oversized I P done (answer :: answers)
      ⟨sqeAt total offsetAt done :: p.sqes, setInits ++ p.setInits, p.outcome⟩ := by
  have hle : count ≤ total - done := hcount ▸ answer.count_le
  have haccepted : accepted r (total - done) (answer :: answers) =
      count :: accepted r (total - (done + count)) answers := by
    rw [accepted, hcount, if_neg hpos, Nat.sub_sub]
  obtain ⟨hsqes, hge, ⟨hle', hle''⟩, houtcome, hfinal, hP⟩ := h
  constructor
  · intro i s hs
    rw [haccepted]
    -- the first operation is the new one, the others follow it by its count
    cases i with
    | zero =>
      rw [List.getElem?_cons_zero] at hs
      obtain rfl := Option.some.inj hs
      exact ⟨show done < total by omega, rfl⟩
    | succ i =>
      rw [List.getElem?_cons_succ] at hs
      rw [List.take_succ_cons, List.sum_cons, ← Nat.add_assoc]
      exact hsqes i s hs
  · rw [haccepted]
    exact Nat.succ_le_succ hge
  · rw [haccepted]
    simp only [List.length_cons]
    omega
  · rw [haccepted, List.sum_cons, ← Nat.add_assoc, List.length_cons, List.getElem?_cons_succ]
    exact houtcome
  · rw [haccepted, List.sum_cons, ← Nat.add_assoc]
    exact hfinal
  · intro c hc
    rcases List.mem_append.mp hc with hc | hc
    · exact hsetInits c hc
    · exact hP c hc

/-- A CQE that transfers nothing ends the loop with one of three errors. -/
theorem Iteration.untilDone_ends {cqe : K}
    (L : Iteration total offsetAt work finish r oversized I P)
    (hI : I buf done (.completed cqe :: answers)) (hlt : done < total)
    (hzero : (Answer.completed cqe).count r (total - done) = 0) :
    untilDone total work finish stalled (.completed cqe :: answers) buf done =
      ⟨[sqeAt total offsetAt done],
        (finish ⟨buf, offsetAt done, done, total - done⟩ cqe).setInits,
        some (.error ((Answer.completed cqe).error r stalled oversized),
          (finish ⟨buf, offsetAt done, done, total - done⟩ cqe).buf)⟩ := by
  have hwork := L.work buf done _ hI hlt
  have hresult := L.result ⟨buf, offsetAt done, done, total - done⟩ cqe
  rw [Answer.error]
  rcases Int.lt_trichotomy (r cqe) 0 with hneg | hstalled | hpos
  · rw [if_pos hneg] at hresult ⊢
    exact untilDone_error hlt hwork hresult
  · rw [hstalled, if_neg (Int.lt_irrefl 0), Int.toNat_zero, if_pos (Nat.zero_le _)] at hresult
    rw [if_neg (by omega), if_pos hstalled]
    exact untilDone_stalled hlt hwork hresult
  · -- a positive count that transfers nothing is an oversized one
    have hgt : ¬(r cqe).toNat ≤ total - done := by
      intro hle
      simp only [Answer.count, if_pos hle] at hzero
      omega
    rw [if_neg (by omega), if_neg hgt] at hresult
    rw [if_neg (by omega), if_neg (by omega)]
    exact untilDone_error hlt hwork hresult

/-- The rule of the loop: an invariant of one iteration, over any answers. -/
theorem untilDone_transferred
    (L : Iteration total offsetAt work finish r oversized I P) (hI : I buf done answers)
    (hdone : done ≤ total) :
    Transferred total offsetAt r stalled oversized I P done answers
      (untilDone total work finish stalled answers buf done) := by
  -- by induction on the answers, one for each turn of the loop
  induction answers generalizing buf done with
  | nil =>
    rcases Nat.lt_or_ge done total with hlt | hge
    · rw [untilDone_nil hlt (L.work buf done [] hI hlt)]
      exact .stop rfl (.inr ⟨hlt, rfl⟩) (by simp [hlt.ne]) nofun nofun
    · obtain rfl : done = total := by omega
      rw [untilDone_of_le hge]
      refine .stop rfl (.inl rfl) (by simp) ?_ nofun
      rintro x ⟨⟩
      exact hI
  | cons answer answers ih =>
    rcases Nat.lt_or_ge done total with hlt | hge
    · have hwork := L.work buf done _ hI hlt
      cases answer with
      | failed error =>
        rw [untilDone_failed hlt hwork]
        refine .stop rfl (.inl rfl) (by simp [hlt.ne, Answer.error]) ?_ nofun
        rintro x ⟨⟩
        exact hI
      | completed cqe =>
        have hP := L.setInits buf done cqe answers hI hlt
        have hresult := L.result ⟨buf, offsetAt done, done, total - done⟩ cqe
        by_cases hzero : (Answer.completed cqe).count r (total - done) = 0
        · have hends := L.ends buf done cqe answers hI hlt hzero
          have hnone : accepted r (total - done) (.completed cqe :: answers) = [] := by
            rw [accepted, if_pos hzero]
          rw [L.untilDone_ends hI hlt hzero]
          refine .stop hnone (.inr ⟨hlt, rfl⟩) (by simp [hlt.ne]) ?_ hP
          rintro x ⟨⟩
          exact hends
        · -- a count that is not zero fits, and the induction hypothesis takes it from there
          have hle : (r cqe).toNat ≤ total - done := by
            by_contra hgt
            exact hzero (if_neg hgt)
          have hcount : (Answer.completed cqe).count r (total - done) = (r cqe).toNat := if_pos hle
          rw [hcount] at hzero
          have hgoes := L.goes buf done cqe answers hI hlt hle hzero
          rw [if_neg (by omega), if_pos hle] at hresult
          rw [untilDone_goes hlt hwork hresult hzero]
          exact .cons hcount hzero hP (ih hgoes (by omega))
    · obtain rfl : done = total := by omega
      have hnone : accepted r (done - done) (answer :: answers) = [] := by
        rw [Nat.sub_self, accepted_zero]
      rw [untilDone_of_le hge]
      refine .stop hnone (.inl rfl) (by simp) ?_ nofun
      rintro x ⟨⟩
      exact hI

end Rule

/-! ## Reads -/

section Reads

variable {B : Type} [IoBufMut B]

/-- The bytes received before the loop ends. -/
def received (remaining : ℕ) : List (Answer Received) → List UInt8
  | [] => []
  | .failed _ :: _ => []
  | .completed cqe :: answers =>
    if (Answer.completed cqe).count Received.result remaining = 0 then []
    else cqe.bytes.take cqe.result.toNat ++ received (remaining - cqe.result.toNat) answers

/-- The buffer after `done` bytes of `target` were received into it. -/
structure Filled (buf₀ : B) (target : List UInt8) (buf : B) (done : ℕ)
    (answers : List (Answer Received)) : Prop where
  lawful : IoBufMut.Lawful buf
  total : bytesTotal buf = bytesTotal buf₀
  done_le : done ≤ bytesTotal buf₀
  /-- The initialized prefix never shrinks. -/
  init : bytesInit buf₀ ≤ bytesInit buf
  marked : done ≤ bytesInit buf
  /-- What was received, and what is still to come. -/
  bytes : (memory buf).take done ++ (received (bytesTotal buf₀ - done) answers).map some =
    target.map some

/-- A call `set_init(n)` that the trait allows, and that does not shrink the prefix. -/
def SetInitOk (buf : B) (n : ℕ) : Prop :=
  n ≤ bytesTotal buf ∧ (memory buf).Initialized n ∧ bytesInit buf ≤ n

variable {buf₀ buf : B} {target : List UInt8} {done : ℕ} {answers : List (Answer Received)}
  {cqe : Received} {oversized : String}

/-- The buffer that `complete` of a read finds. -/
def Work.stored (item : Work B) (cqe : Received) : B :=
  store item.buf item.bufferOffset (cqe.bytes.take item.entry.len)

/-- A read by the result of its CQE. -/
theorem Work.receive_eq (item : Work B) (cqe : Received) :
    item.receive oversized cqe =
      if cqe.result < 0 then ⟨.error (.os (-cqe.result)), item.stored cqe, []⟩
      else if cqe.result.toNat ≤ item.remaining then
        let n := max (bytesInit (item.stored cqe)) (item.bufferOffset + cqe.result.toNat)
        ⟨.ok cqe.result.toNat, setInit (item.stored cqe) n, [(item.stored cqe, n)]⟩
      else ⟨.error (.new .invalidData oversized), item.stored cqe, []⟩ := by
  unfold Work.receive Nosv.Io.result
  by_cases hneg : cqe.result < 0
  · rw [if_pos hneg, if_pos hneg]
    rfl
  · rw [if_neg hneg, if_neg hneg]
    rfl

/-- The buffer after the kernel has stored into its rest. -/
theorem Filled.store [LawfulIoBufMut B] (h : Filled buf₀ target buf done answers)
    {chunk : List UInt8} (hchunk : done + chunk.length ≤ bytesTotal buf₀) :
    Filled buf₀ target (store buf done chunk) done answers ∧
      memory (Nosv.Io.store buf done chunk) = (memory buf).write done chunk ∧
      bytesInit (Nosv.Io.store buf done chunk) = bytesInit buf := by
  obtain ⟨hlawful, htotal, hdone, hinit, hmarked, hbytes⟩ := h
  have hfits : done + chunk.length ≤ (memory buf).length := by
    have := hlawful.total_le
    omega
  obtain ⟨hmemory, hinit', htotal'⟩ :=
    LawfulIoBufMut.store_spec buf done chunk hlawful (by omega)
  refine ⟨⟨?_, htotal'.trans htotal, hdone, hinit'.symm ▸ hinit, hinit'.symm ▸ hmarked, ?_⟩,
    hmemory, hinit'⟩
  · constructor
    · constructor
      · rw [hmemory, hinit', Memory.length_write hfits]
        exact hlawful.init_le
      · rw [hmemory, hinit']
        exact hlawful.initialized.write hfits
    · rw [hmemory, htotal', Memory.length_write hfits]
      exact hlawful.total_le
    · rw [hinit', htotal']
      exact hlawful.init_le_total
  · rw [hmemory, Memory.take_write (by omega) (Nat.le_refl _)]
    exact hbytes

/-- The bytes of the current answer come first. -/
theorem received_goes {remaining : ℕ} (hle : cqe.result.toNat ≤ remaining)
    (hpos : cqe.result.toNat ≠ 0) :
    received remaining (.completed cqe :: answers) =
      cqe.bytes.take cqe.result.toNat ++ received (remaining - cqe.result.toNat) answers := by
  rw [received, Answer.count, if_pos hle, if_neg hpos]

/-- A count marks the bytes received. -/
theorem Filled.goes [LawfulIoBufMut B] {total len : ℕ}
    (h : Filled buf₀ target buf done (.completed cqe :: answers))
    (htotal : bytesTotal buf₀ = total) (hlen : len = total - done)
    (hle : cqe.result.toNat ≤ total - done) :
    let stored := Nosv.Io.store buf done (cqe.bytes.take len)
    let n := max (bytesInit stored) (done + cqe.result.toNat)
    SetInitOk stored n ∧ (cqe.result.toNat ≠ 0 →
        Filled buf₀ target (setInit stored n) (done + cqe.result.toNat) answers) ∧
      (cqe.result.toNat = 0 →
        Filled buf₀ target (setInit stored n) done (.completed cqe :: answers)) := by
  intro stored n
  have hdone := h.done_le
  have hroom : done + (cqe.bytes.take len).length ≤ bytesTotal buf₀ := by
    rw [List.length_take]
    omega
  have hcount : cqe.result.toNat ≤ (cqe.bytes.take len).length := by
    have := cqe.le_length
    rw [List.length_take]
    omega
  obtain ⟨hs, hmemory, hinit⟩ := h.store hroom
  have hstart : done ≤ (memory buf).length := by
    have := h.lawful.total_le
    have := h.total
    omega
  -- the bytes before `done` were initialized already, and those after it were just written
  have hwritten : (memory stored).Initialized (done + cqe.result.toNat) := by
    rw [hmemory]
    exact (h.lawful.initialized.mono h.marked).extend hstart hcount
  have hn : (memory stored).Initialized n := by
    rcases Nat.le_total (bytesInit stored) (done + cqe.result.toNat) with hmax | hmax
    · rwa [show n = _ from Nat.max_eq_right hmax]
    · rw [show n = _ from Nat.max_eq_left hmax]
      exact hs.lawful.initialized
  have hnle : n ≤ bytesTotal stored := by
    have hfits : done + cqe.result.toNat ≤ bytesTotal buf₀ := by omega
    exact Nat.max_le.mpr ⟨hs.lawful.init_le_total, hs.total.symm ▸ hfits⟩
  obtain ⟨hlawful, hsame, htotal', hmarks⟩ :=
    LawfulIoBufMut.setInit_spec stored n hs.lawful hnle hn
  have hinit' : bytesInit buf₀ ≤ bytesInit (setInit stored n) :=
    hs.init.trans ((Nat.le_max_left _ _).trans hmarks)
  refine ⟨⟨hnle, hn, Nat.le_max_left _ _⟩, fun hpos => ?_, fun hzero => ?_⟩
  · refine ⟨hlawful, htotal'.trans hs.total, by omega, hinit', (Nat.le_max_right _ _).trans hmarks,
      ?_⟩
    -- what was received moves from the bytes to come to those that are there
    have hbytes := h.bytes
    rw [htotal, received_goes hle hpos, List.map_append, ← List.append_assoc] at hbytes
    have htake : (cqe.bytes.take len).take cqe.result.toNat = cqe.bytes.take cqe.result.toNat := by
      rw [List.take_take, Nat.min_eq_left (by omega)]
    rw [hsame, hmemory, Memory.take_write_add hstart hcount, htake, htotal, ← Nat.sub_sub]
    exact hbytes
  · exact ⟨hlawful, htotal'.trans hs.total, hs.done_le, hinit', hs.marked.trans
      ((Nat.le_max_left _ _).trans hmarks), hsame ▸ hs.bytes⟩

/-- An answer that is an error leaves the bytes received alone. -/
theorem Filled.stored [LawfulIoBufMut B] {total len : ℕ} (h : Filled buf₀ target buf done answers)
    (htotal : bytesTotal buf₀ = total) (hlen : len = total - done) (bytes : List UInt8) :
    Filled buf₀ target (Nosv.Io.store buf done (bytes.take len)) done answers := by
  have hdone := h.done_le
  refine (h.store ?_).1
  rw [List.length_take]
  omega

/-- One iteration of a read loop. -/
theorem Filled.iteration [LawfulIoBufMut B] {total : ℕ} {offsetAt : ℕ → Option UInt64}
    {work : B → ℕ → Except Error (Work B)} (htotal : bytesTotal buf₀ = total)
    (hsize : total ≤ u32Max)
    (hwork : ∀ (buf : B) (done : ℕ), done < total → bytesTotal buf = total →
      work buf done = .ok ⟨buf, offsetAt done, done, total - done⟩) :
    Iteration total offsetAt work (Work.receive oversized) Received.result
      (.new .invalidData oversized) (Filled buf₀ target) SetInitOk := by
  have hlen : ∀ done, (total - done) % 2 ^ 32 = total - done := by
    intro done
    unfold u32Max at hsize
    exact Nat.mod_eq_of_lt (by omega)
  constructor
  -- In the order of the fields of `Iteration`.
  case work =>
    intro buf done answers h hlt
    exact hwork buf done hlt (h.total.trans htotal)
  case result =>
    intro item cqe
    rw [item.receive_eq]
    split_ifs <;> rfl
  case goes =>
    intro buf done cqe answers h hlt hle hpos
    rw [Work.receive_eq, if_neg (by omega), if_pos hle]
    exact (h.goes htotal (hlen done) hle).2.1 hpos
  case ends =>
    intro buf done cqe answers h hlt hzero
    -- An error, the end of the stream, or more bytes than were asked for.
    rw [Work.receive_eq]
    split_ifs with hneg hle
    · exact h.stored htotal (hlen done) cqe.bytes
    · have hnone : cqe.result.toNat = 0 := by
        rw [Answer.count, if_pos hle] at hzero
        exact hzero
      exact (h.goes htotal (hlen done) hle).2.2 hnone
    · exact h.stored htotal (hlen done) cqe.bytes
  case setInits =>
    intro buf done cqe answers h hlt c hc
    rw [Work.receive_eq] at hc
    split_ifs at hc with hneg hle
    · cases hc
    · rw [List.mem_singleton.mp hc]
      exact (h.goes htotal (hlen done) hle).1
    · cases hc

/-- How many bytes were received. -/
theorem received_length {remaining : ℕ} : (received remaining answers).length =
    (accepted Received.result remaining answers).sum := by
  induction answers generalizing remaining with
  | nil => rfl
  | cons answer answers ih =>
    cases answer with
    | failed => rfl
    | completed cqe =>
      rw [received, accepted, Answer.count]
      by_cases hle : cqe.result.toNat ≤ remaining
      · rw [if_pos hle]
        by_cases hzero : cqe.result.toNat = 0
        · rw [if_pos hzero, if_pos hzero]
          rfl
        · rw [if_neg hzero, if_neg hzero, List.length_append, List.length_take, ih, List.sum_cons,
            Nat.min_eq_left cqe.le_length]
      · rw [if_neg hle, if_pos rfl, if_pos rfl]
        rfl

/-- Nothing is received from answers that transfer nothing. -/
theorem received_eq_nil {remaining : ℕ}
    (h : accepted Received.result remaining answers = []) : received remaining answers = [] := by
  have hlen : (received remaining answers).length = _ := received_length
  rw [h] at hlen
  exact List.length_eq_zero_iff.mp hlen

/-- What a read loop over a lawful buffer does. -/
theorem untilDone_filled [LawfulIoBufMut B] {total : ℕ} {offsetAt : ℕ → Option UInt64}
    {work : B → ℕ → Except Error (Work B)} {stalled : Error} (hlawful : IoBufMut.Lawful buf₀)
    (htotal : bytesTotal buf₀ = total) (hsize : total ≤ u32Max)
    (hwork : ∀ (buf : B) (done : ℕ), done < total → bytesTotal buf = total →
      work buf done = .ok ⟨buf, offsetAt done, done, total - done⟩) :
    Transferred total offsetAt Received.result stalled (.new .invalidData oversized)
      (Filled buf₀ (received total answers)) SetInitOk 0 answers
      (untilDone total work (Work.receive oversized) stalled answers buf₀ 0) := by
  have hfilled : Filled buf₀ (received total answers) buf₀ 0 answers :=
    ⟨hlawful, rfl, Nat.zero_le _, Nat.le_refl _, Nat.zero_le _, by
      rw [htotal, List.take_zero, Nat.sub_zero, List.nil_append]⟩
  exact untilDone_transferred (Filled.iteration htotal hsize hwork) hfilled (Nat.zero_le _)

end Reads

/-! ## Writes -/

section Writes

variable {B : Type} {buf₀ buf : B} {done : ℕ} {answers : List (Answer ℤ)} {oversized : String}

/-- A write by the result of its CQE. -/
theorem Work.send_eq (item : Work B) (cqe : ℤ) :
    item.send oversized cqe =
      if cqe < 0 then ⟨.error (.os (-cqe)), item.buf, []⟩
      else if cqe.toNat ≤ item.remaining then ⟨.ok cqe.toNat, item.buf, []⟩
      else ⟨.error (.new .invalidData oversized), item.buf, []⟩ := by
  unfold Work.send Nosv.Io.result
  by_cases hneg : cqe < 0
  · rw [if_pos hneg, if_pos hneg]
  · rw [if_neg hneg, if_neg hneg]

/-- A write gives its buffer back as it was. -/
theorem Work.send_buf (item : Work B) (cqe : ℤ) :
    (item.send oversized cqe).buf = item.buf ∧ (item.send oversized cqe).setInits = [] := by
  rw [item.send_eq]
  split_ifs <;> exact ⟨rfl, rfl⟩

/-- What a write loop does. -/
theorem untilDone_sent {total : ℕ} {offsetAt : ℕ → Option UInt64}
    {work : B → ℕ → Except Error (Work B)} {stalled : Error}
    (hwork : ∀ done, done < total →
      work buf₀ done = .ok ⟨buf₀, offsetAt done, done, total - done⟩) :
    Transferred total offsetAt (fun cqe : ℤ => cqe) stalled (.new .invalidData oversized)
      (fun buf _ _ => buf = buf₀) (fun _ _ => False) 0 answers
      (untilDone total work (Work.send oversized) stalled answers buf₀ 0) := by
  refine untilDone_transferred ⟨?_, ?_, ?_, ?_, ?_⟩ rfl (Nat.zero_le _)
  · rintro buf done answers rfl hlt
    exact hwork done hlt
  · intro item cqe
    rw [item.send_eq]
    split_ifs <;> rfl
  · rintro buf done cqe answers rfl - - -
    exact (Work.send_buf _ _).1
  · rintro buf done cqe answers rfl - -
    exact (Work.send_buf _ _).1
  · intro buf done cqe answers _ _ c hc
    rw [(Work.send_buf _ _).2] at hc
    cases hc

end Writes

end Nosv.Io
