import Nosv.Io.Net
import Nosv.Io.Positioned

/-!
# The exact and all loops

Four loops repeat an operation on the rest of a buffer that moves in and out of the driver. Each
byte is transferred once, in order, and the buffer always comes back. Reads and writes have one
statement each, of which the file loop and the socket loop are instances.

`exact_loops` has all four.
-/

namespace Nosv.Io

/-! ## Statements -/

section Statements

variable {B K : Type}

/-- What the loops over `total` bytes have in common, given the result of each answer. -/
structure Exact (total : ℕ) (offsetAt : ℕ → Option UInt64) (r : K → ℤ) (stalled oversized : Error)
    (answers : List (Answer K)) (p : Progress Unit B) : Prop where
  /-- Each operation covers what is left when the ones before it are done. -/
  operations : ∀ i s, p.sqes[i]? = some s →
    let start := ((accepted r total answers).take i).sum
    s = ⟨start, total - start, offsetAt start⟩
  /-- Every transfer has its operation, and there are no more operations than bytes. -/
  enough : (accepted r total answers).length ≤ p.sqes.length
  bounded : p.sqes.length ≤ total
  ends : total ≤ answers.length → p.outcome.isSome = true
  /-- The result is `Ok` exactly when the counts before the first answer that is none add up to
  `total`; else it is the error of that answer. -/
  outcome : p.outcome.map Prod.fst =
    if (accepted r total answers).sum = total then some (.ok ())
    else (answers[(accepted r total answers).length]?).map fun answer =>
      .error (answer.error r stalled oversized)

/-- A read loop: how it transfers, and what it leaves in the buffer. -/
structure ReadsExactly [IoBufMut B] (offsetAt : ℕ → Option UInt64) (stalled oversized : Error)
    (buf : B) (answers : List (Answer Received)) (p : Progress Unit B) : Prop where
  exact : Exact (bytesTotal buf) offsetAt Received.result stalled oversized answers p
  setInits : ∀ c ∈ p.setInits, SetInitOk c.1 c.2
  /-- The transferred prefix is what was received; nothing initialized before is lost. -/
  buffer : ∀ result buf', p.outcome = some (result, buf') →
    (memory buf').take (accepted Received.result (bytesTotal buf) answers).sum =
        (received (bytesTotal buf) answers).map some ∧
      (accepted Received.result (bytesTotal buf) answers).sum ≤ bytesInit buf' ∧
      bytesInit buf ≤ bytesInit buf' ∧ bytesTotal buf' = bytesTotal buf ∧ IoBufMut.Lawful buf'

/-- The bytes accepted by the operations of a write. -/
def sent (m : Memory) (sqes : List Sqe) (counts : List ℕ) : Memory :=
  (List.zipWith (fun s n => (m.drop s.start).take n) sqes counts).flatten

/-- A write loop: how it transfers, and which bytes. -/
structure WritesExactly [IoBuf B] (offsetAt : ℕ → Option UInt64) (stalled oversized : Error)
    (buf : B) (answers : List (Answer ℤ)) (p : Progress Unit B) : Prop where
  exact : Exact (bytesInit buf) offsetAt (fun cqe : ℤ => cqe) stalled oversized answers p
  setInits : p.setInits = []
  /-- What was accepted is a prefix of the initialized bytes, and all of them on `Ok`. -/
  accepted : ∃ n, n ≤ bytesInit buf ∧ (memory buf).Initialized n ∧
    sent (memory buf) p.sqes (accepted (fun cqe : ℤ => cqe) (bytesInit buf) answers) =
      (memory buf).take n ∧
    (p.outcome.map Prod.fst = some (.ok ()) → n = bytesInit buf)
  buffer : ∀ result buf', p.outcome = some (result, buf') → buf' = buf

/-- The error of a buffer with more than `u32::MAX` bytes. -/
def tooLargeError : Error := .new .invalidInput "buffer is too large for io_uring"

/-- A call that only gives its buffer back. -/
def Progress.rejected (error : Error) (buf : B) : Progress Unit B :=
  ⟨[], [], some (.error error, buf)⟩

end Statements

/-! ## From the rule of the loop -/

section Rule

variable {B K : Type} {total : ℕ} {offsetAt : ℕ → Option UInt64} {r : K → ℤ}
  {stalled oversized : Error} {I : B → ℕ → List (Answer K) → Prop} {P : B → ℕ → Prop}
  {answers : List (Answer K)} {p : Progress Unit B}

/-- The common part. -/
theorem Transferred.exact (h : Transferred total offsetAt r stalled oversized I P 0 answers p)
    (hsize : total ≤ u32Max) : Exact total offsetAt r stalled oversized answers p where
  operations i s hs := by
    obtain ⟨-, heq⟩ := h.sqes i s hs
    rw [Nat.zero_add, Nat.sub_zero] at heq
    -- A transfer of at most `u32::MAX` bytes fits the length field of its SQE.
    have hmod : (total - ((Nosv.Io.accepted r total answers).take i).sum) % 2 ^ 32 =
        total - ((Nosv.Io.accepted r total answers).take i).sum := by
      unfold u32Max at hsize
      exact Nat.mod_eq_of_lt (by omega)
    rw [heq, sqeAt, hmod]
  enough := h.length_ge
  bounded := h.length_le.2
  ends hlen := by
    have houtcome := h.outcome
    rw [Nat.zero_add, Nat.sub_zero] at houtcome
    -- Each answer that counts has brought a byte, so there are not more of them than bytes.
    have hsum : (Nosv.Io.accepted r total answers).sum ≤ total := accepted_sum_le
    have hlength : (Nosv.Io.accepted r total answers).length ≤
        (Nosv.Io.accepted r total answers).sum := accepted_length_le
    cases hp : p.outcome with
    | some x => rfl
    | none =>
      rw [hp] at houtcome
      split_ifs at houtcome with hall
      · cases houtcome
      · rw [List.getElem?_eq_getElem (by omega)] at houtcome
        cases houtcome
  outcome := by
    have houtcome := h.outcome
    rwa [Nat.zero_add, Nat.sub_zero] at houtcome

/-- The accepted chunks, one after the other, are a prefix of the memory. -/
theorem sent_eq_take {m : Memory} {sqes : List Sqe} {counts : List ℕ} {done : ℕ}
    (hlen : counts.length ≤ sqes.length)
    (hstart : ∀ i s, sqes[i]? = some s → s.start = done + (counts.take i).sum) :
    m.take done ++ sent m sqes counts = m.take (done + counts.sum) := by
  induction counts generalizing sqes done with
  | nil => simp [sent]
  | cons n counts ih =>
    obtain ⟨s, sqes, rfl⟩ : ∃ s rest, sqes = s :: rest := by
      cases sqes with
      | nil => simp at hlen
      | cons s rest => exact ⟨s, rest, rfl⟩
    have hs : s.start = done := hstart 0 s rfl
    have hrest := @ih sqes (done + n) (Nat.le_of_succ_le_succ hlen) fun i s' hs' => by
      rw [hstart (i + 1) s' hs', List.take_succ_cons, List.sum_cons, Nat.add_assoc]
    rw [List.sum_cons, ← Nat.add_assoc, ← hrest, List.take_add, List.append_assoc, ← hs]
    rfl

/-- What a read loop leaves in a lawful buffer. -/
theorem readsExactly [IoBufMut B] [LawfulIoBufMut B] {buf : B} {oversized : String}
    {work : B → ℕ → Except Error (Work B)} {answers : List (Answer Received)}
    (hlawful : IoBufMut.Lawful buf) (hsize : bytesTotal buf ≤ u32Max)
    (hwork : ∀ (buf' : B) (done : ℕ), done < bytesTotal buf → bytesTotal buf' = bytesTotal buf →
      work buf' done = .ok ⟨buf', offsetAt done, done, bytesTotal buf - done⟩) :
    ReadsExactly offsetAt stalled (.new .invalidData oversized) buf answers
      (untilDone (bytesTotal buf) work (Work.receive oversized) stalled answers buf 0) := by
  have h := @untilDone_filled _ _ buf answers oversized _ _ _ _ stalled hlawful rfl hsize hwork
  refine ⟨h.exact hsize, h.setInits, fun result buf' hout => ?_⟩
  obtain ⟨rest, hfilled, hnone⟩ := h.final (result, buf') hout
  rw [Nat.sub_zero, Nat.zero_add] at hfilled hnone
  -- the loop ended, so that nothing more comes from the answers left
  have hbytes := hfilled.bytes
  rw [received_eq_nil hnone, List.map_nil, List.append_nil] at hbytes
  exact ⟨hbytes, hfilled.marked, hfilled.init, hfilled.total, hfilled.lawful⟩

/-- What a write loop takes from a lawful buffer. -/
theorem writesExactly [IoBuf B] {buf : B} {oversized : String}
    {work : B → ℕ → Except Error (Work B)} {answers : List (Answer ℤ)}
    (hlawful : IoBuf.Lawful buf) (hsize : bytesInit buf ≤ u32Max)
    (hwork : ∀ done, done < bytesInit buf →
      work buf done = .ok ⟨buf, offsetAt done, done, bytesInit buf - done⟩) :
    WritesExactly offsetAt stalled (.new .invalidData oversized) buf answers
      (untilDone (bytesInit buf) work (Work.send oversized) stalled answers buf 0) := by
  have h := @untilDone_sent _ buf answers oversized _ _ _ stalled hwork
  have hexact := h.exact hsize
  refine ⟨hexact, List.eq_nil_iff_forall_not_mem.mpr h.setInits, ?_, fun result buf' hout => ?_⟩
  · refine ⟨(Nosv.Io.accepted (fun cqe : ℤ => cqe) (bytesInit buf) answers).sum, accepted_sum_le,
      hlawful.initialized.mono accepted_sum_le, ?_, fun hok => ?_⟩
    · have hsent := @sent_eq_take (memory buf) _ _ 0 hexact.enough fun i s hs => by
        rw [hexact.operations i s hs, Nat.zero_add]
      rwa [List.take_zero, List.nil_append, Nat.zero_add] at hsent
    · -- an answer that ends the loop early gives an error
      have houtcome := hexact.outcome
      rw [hok] at houtcome
      split_ifs at houtcome with hsum
      · exact hsum
      · obtain ⟨answer, -, hanswer⟩ := Option.map_eq_some_iff.mp houtcome.symm
        cases hanswer
  · obtain ⟨-, hsame, -⟩ := h.final (result, buf') hout
    exact hsame

end Rule

/-! ## The four loops -/

section Loops

variable {B K : Type} {buf : B}

/-- An iteration of a socket loop. -/
theorem workAt_eq {size : B → ℕ} {fileOffset : Option UInt64} (hsize : size buf ≤ u32Max)
    (done : ℕ) :
    workAt size fileOffset buf done = .ok ⟨buf, fileOffset, done, size buf - done⟩ := by
  refine if_neg ?_
  omega

/-- A loop over a buffer that is too large gives it back. -/
theorem untilDone_oversized {total : ℕ} {work : B → ℕ → Except Error (Work B)}
    {finish : Work B → K → Finished B} {stalled : Error} (answers : List (Answer K))
    (hsize : u32Max < total) (hwork : work buf 0 = .error tooLargeError) :
    untilDone total work finish stalled answers buf 0 = .rejected tooLargeError buf :=
  untilDone_rejected (Nat.zero_lt_of_lt hsize) hwork

/-- The exact and all loops transfer each byte once and in order, and give the buffer back; a buffer
of more than `u32::MAX` bytes comes back untouched. -/
theorem exact_loops {R W : Type} [IoBufMut R] [LawfulIoBufMut R] [IoBuf W] (file : File)
    (rbuf : R) (wbuf : W) (offset : UInt64) (hmode : file.appendMode = false)
    (hread : IoBufMut.Lawful rbuf) (hwrite : IoBuf.Lawful wbuf)
    (hreadRange : offset.toNat + bytesTotal rbuf ≤ 2 ^ 64)
    (hwriteRange : offset.toNat + bytesInit wbuf ≤ 2 ^ 64)
    (received : List (Answer Received)) (written : List (Answer ℤ)) :
    (bytesTotal rbuf ≤ u32Max →
      ReadsExactly (checkedAdd offset) (.new .unexpectedEof "failed to fill whole buffer")
        (.new .invalidData "kernel returned an oversized read") rbuf received
        (file.readExactAt rbuf offset received) ∧
      ReadsExactly (fun _ => none) (.new .unexpectedEof "connection closed early")
        (.new .invalidData "kernel returned an oversized receive") rbuf received
        (TcpStream.recvExact rbuf received)) ∧
    (u32Max < bytesTotal rbuf →
      file.readExactAt rbuf offset received = .rejected tooLargeError rbuf ∧
      TcpStream.recvExact rbuf received = .rejected tooLargeError rbuf) ∧
    (bytesInit wbuf ≤ u32Max →
      WritesExactly (checkedAdd offset) (.new .writeZero "failed to write buffer")
        (.new .invalidData "kernel returned an oversized write") wbuf written
        (file.writeAllAt wbuf offset written) ∧
      WritesExactly (fun _ => none) (.new .writeZero "failed to send buffer")
        (.new .invalidData "kernel returned an oversized send") wbuf written
        (TcpStream.sendAll wbuf written)) ∧
    (u32Max < bytesInit wbuf →
      file.writeAllAt wbuf offset written = .rejected tooLargeError wbuf ∧
      TcpStream.sendAll wbuf written = .rejected tooLargeError wbuf) := by
  -- In append mode the loop is another one; `hmode` excludes it.
  have hloop : file.writeAllAt wbuf offset written =
      untilDone (bytesInit wbuf) (File.positioned bytesInit offset) File.completeWrite
        (.new .writeZero "failed to write buffer") written wbuf 0 := by
    rw [File.writeAllAt, hmode]
    rfl
  refine ⟨fun hsize => ⟨?_, ?_⟩, fun hsize => ⟨?_, ?_⟩, fun hsize => ⟨?_, ?_⟩,
    fun hsize => ⟨?_, ?_⟩⟩
  · -- The two reading loops, and below them the writing loops.
    refine readsExactly hread hsize fun buf' done hlt htotal => ?_
    rw [File.positioned_eq_ok (by omega) (by omega), htotal]
  · refine readsExactly hread hsize fun buf' done hlt htotal => ?_
    rw [workAt_eq (by omega), htotal]
  · exact untilDone_oversized received hsize (File.positioned_too_large hsize)
  · exact untilDone_oversized received hsize (if_pos hsize)
  · rw [hloop]
    refine writesExactly hwrite hsize fun done hlt => ?_
    exact File.positioned_eq_ok (by omega) hsize
  · exact writesExactly hwrite hsize fun done _ => workAt_eq hsize done
  · rw [hloop]
    exact untilDone_oversized written hsize (File.positioned_too_large hsize)
  · exact untilDone_oversized written hsize (if_pos hsize)

/-- Two bytes each way, in two transfers. -/
theorem exact_loops_two :
    ReadsExactly (checkedAdd 0) (.new .unexpectedEof "failed to fill whole buffer")
        (.new .invalidData "kernel returned an oversized read") (⟨[none, none], 0⟩ : Vec)
        [.completed (.zeros 1), .completed (.zeros 1)]
        ((⟨3, false⟩ : File).readExactAt (⟨[none, none], 0⟩ : Vec) 0
          [.completed (.zeros 1), .completed (.zeros 1)]) ∧
      WritesExactly (fun _ => none) (.new .writeZero "failed to send buffer")
        (.new .invalidData "kernel returned an oversized send") (⟨[7, 8]⟩ : Slice)
        [.completed 1, .completed 1]
        (TcpStream.sendAll (⟨[7, 8]⟩ : Slice) [.completed 1, .completed 1]) := by
  have hlawful : IoBufMut.Lawful (⟨[none, none], 0⟩ : Vec) :=
    ⟨⟨Nat.zero_le _, nofun⟩, Nat.le_refl _, Nat.zero_le _⟩
  have h := exact_loops ⟨3, false⟩ (⟨[none, none], 0⟩ : Vec) (⟨[7, 8]⟩ : Slice) 0 rfl hlawful
    (Slice.lawful _).toLawful (by decide) (by decide)
    [.completed (.zeros 1), .completed (.zeros 1)] [.completed 1, .completed 1]
  exact ⟨(h.1 (by decide)).1, (h.2.2.1 (by decide)).2⟩

end Loops

end Nosv.Io
